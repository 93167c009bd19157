import TuffSafety.Proofs.Execution
import TuffSafety.Proofs.Occurrence

/-!
# Which assignments are collected

The checker widens the names that a block or an operand assigns, and has them collected beforehand.
A name is collected if and only if an assignment to it occurs in sight. What occurs out of sight
stands in the bounds of a range or in the place of an assignment to something else than a name, and
is missed there; everywhere else the collection is exact. Expressions in the types of a program are
no part of what it runs, and do not count.
-/
namespace TuffSafety

namespace Assigned

theorem exprs_eq (es : List Expr) : exprs es = es.flatMap expr := by
  induction es with
  | nil => rfl
  | cons e es ih => rw [exprs, ih, List.flatMap_cons]

theorem fieldInits_eq (fs : List FieldInit) : fieldInits fs = fs.flatMap fun f => expr f.value := by
  induction fs with
  | nil => rfl
  | cons f fs ih =>
    obtain ⟨key, value⟩ := f
    rw [fieldInits, ih, List.flatMap_cons]

theorem matchCases_eq (cs : List MatchCase) : matchCases cs = cs.flatMap fun arm => expr arm.body := by
  induction cs with
  | nil => rfl
  | cons arm cs ih =>
    obtain ⟨pattern, body⟩ := arm
    rw [matchCases, ih, List.flatMap_cons]

theorem stmts_eq (ss : List Stmt) : stmts ss = ss.flatMap stmt := by
  induction ss with
  | nil => rfl
  | cons s ss ih => rw [stmts, ih, List.flatMap_cons]

end Assigned

namespace Node

/-- The names that are collected as assigned in a node. -/
def collected : Node → List String
  | .expr e => Assigned.expr e
  | .stmt s => Assigned.stmt s

/-- An assignment to the name occurs in a part that is overlooked. -/
def AssignsUnseen (node : Node) (name : String) : Prop :=
  ∃ inner part, node.Contains inner ∧ inner.Overlooks part ∧ part.Assigns name

variable {node part : Node} {name : String}

theorem Has.sees_or_overlooks (h : node.Has part) : node.Sees part ∨ node.Overlooks part := by
  cases hnode : node.isSelective with
  | false => exact .inl (.part h hnode)
  | true =>
    cases h with
    | assigned => exact .inl .assigned
    | forBody => exact .inl .forBody
    | place => exact .inr .place
    | rangeFirst => exact .inr .rangeFirst
    | rangeLast => exact .inr .rangeLast
    | _ => cases hnode

/-- What is collected in a part that is in sight is collected in the whole. -/
theorem Sees.collected (h : node.Sees part) (hname : name ∈ part.collected) :
    name ∈ node.collected := by
  cases h with
  | assigned => exact List.mem_append_right _ hname
  | @forBody iterator low high body loc =>
    obtain ⟨ss, place⟩ := body
    exact hname
  | part h hnode =>
    cases h with
    | left | callee | target | scrutinee => exact List.mem_append_left _ hname
    | right | position => exact List.mem_append_right _ hname
    | condition => exact List.mem_append_left _ (List.mem_append_left _ hname)
    | thenBranch => exact List.mem_append_left _ (List.mem_append_right _ hname)
    | elseBranch => exact List.mem_append_right _ hname
    | operand | object | tested | unwrapped | initializer | returned | exprStmt | ifStmt => exact hname
    | arg he =>
      refine List.mem_append_right _ ?_
      rw [Assigned.exprs_eq]
      exact List.mem_flatMap.mpr ⟨_, he, hname⟩
    | @field struct fs loc f hf =>
      change name ∈ Assigned.fieldInits fs
      rw [Assigned.fieldInits_eq]
      exact List.mem_flatMap.mpr ⟨f, hf, hname⟩
    | arm ha =>
      refine List.mem_append_right _ ?_
      rw [Assigned.matchCases_eq]
      exact List.mem_flatMap.mpr ⟨_, ha, hname⟩
    | @block ss loc s hs =>
      change name ∈ Assigned.stmts ss
      rw [Assigned.stmts_eq]
      exact List.mem_flatMap.mpr ⟨s, hs, hname⟩
    | @blockStmt body =>
      obtain ⟨ss, place⟩ := body
      exact hname
    | @whileCondition cond body loc =>
      obtain ⟨ss, place⟩ := body
      exact List.mem_append_left _ hname
    | @whileBody cond body loc =>
      obtain ⟨ss, place⟩ := body
      exact List.mem_append_right _ hname
    | assigned | place | rangeFirst | rangeLast | forBody => cases hnode

/-- The whole path to an assignment is in sight, so the name comes up along it. -/
theorem AssignsInSight.collected (h : node.AssignsInSight name) : name ∈ node.collected := by
  obtain ⟨place, value, loc, hin⟩ := h
  induction hin using Relation.ReflTransGen.head_induction_on with
  | refl => exact List.mem_append_left _ (List.mem_singleton_self name)
  | head hsees _ ih => exact hsees.collected ih

theorem mem_collected_iff : name ∈ node.collected ↔ node.AssignsInSight name := by
  refine ⟨?_, AssignsInSight.collected⟩
  cases node with
  | expr e => exact Assigned.expr_inSight e
  | stmt s => exact Assigned.stmt_inSight s

/-- On the way to an assignment that is not in sight there is a first part that is overlooked. -/
theorem assigns_iff : node.Assigns name ↔ node.AssignsInSight name ∨ node.AssignsUnseen name := by
  constructor
  · rintro ⟨place, value, loc, hin⟩
    induction hin using Relation.ReflTransGen.head_induction_on with
    | refl => exact .inl ⟨place, value, loc, .refl⟩
    | @head node part hpart hin ih =>
      rcases hpart.sees_or_overlooks with hsees | hoverlooks
      · rcases ih with hsight | ⟨inner, hidden, hinner, hover, hassigns⟩
        · exact .inl (hsight.of_sees hsees)
        · exact .inr ⟨inner, hidden, .head hpart hinner, hover, hassigns⟩
      · exact .inr ⟨node, part, .refl, hoverlooks, place, value, loc, hin⟩
  · rintro (hsight | ⟨inner, part, hinner, hover, place, value, loc, hin⟩)
    · exact hsight.assigns
    · exact ⟨place, value, loc, hinner.trans (.head hover.has hin)⟩

end Node

theorem Expr.mem_assigned_iff {e : Expr} {name : String} :
    name ∈ e.assigned ↔ (Node.expr e).AssignsInSight name := by
  rw [← Node.mem_collected_iff]
  exact mem_distinctNames

theorem Block.mem_assigned_iff {b : Block} {name : String} :
    name ∈ b.assigned ↔ (Node.expr (.block b)).AssignsInSight name := by
  obtain ⟨ss, loc⟩ := b
  exact Expr.mem_assigned_iff (e := .block ⟨ss, loc⟩)

/-- The names collected in an expression or a block are exactly those of the assignments in sight. An
assignment that occurs at all is collected, or it stands in a part that is overlooked. -/
theorem assigned_exact (name : String) :
    (∀ e : Expr, (name ∈ e.assigned ↔ (Node.expr e).AssignsInSight name) ∧
      ((Node.expr e).Assigns name ↔ name ∈ e.assigned ∨ (Node.expr e).AssignsUnseen name)) ∧
    ∀ b : Block, (name ∈ b.assigned ↔ (Node.expr (.block b)).AssignsInSight name) ∧
      ((Node.expr (.block b)).Assigns name ↔
        name ∈ b.assigned ∨ (Node.expr (.block b)).AssignsUnseen name) := by
  constructor
  · intro e
    refine ⟨Expr.mem_assigned_iff, ?_⟩
    rw [Expr.mem_assigned_iff]
    exact Node.assigns_iff
  · intro b
    refine ⟨Block.mem_assigned_iff, ?_⟩
    rw [Block.mem_assigned_iff]
    exact Node.assigns_iff

namespace OutOfSight

/-- The block `{ name = 1; 0 }` as an expression. -/
def setting (name : String) : Expr :=
  .block ⟨[.assign (.ident name none) (.number 1 none none) none, .expr (.number 0 none none) none],
    none⟩

/-- The block `{ for (i in { a = 1; 0 }..{ b = 1; 0 }) { } xs[{ c = 1; 0 }] = 5; d = { e = 1; 0 }; }` -/
def block : Block :=
  ⟨[.forLoop "i" (setting "a") (setting "b") ⟨[], none⟩ none,
    .assign (.index (.ident "xs" none) (setting "c") none) (.number 5 none none) none,
    .assign (.ident "d" none) (setting "e") none], none⟩

theorem setting_assigns (name : String) : (Node.expr (setting name)).Assigns name :=
  ⟨_, _, _, .single (.block (List.mem_cons_self ..))⟩

end OutOfSight

open OutOfSight in
/-- Both bounds of a range and the index of a place assign names that are not collected. -/
theorem assignments_overlooked :
    (Node.expr (.block block)).Assigns "a" ∧ (Node.expr (.block block)).Assigns "b" ∧
      (Node.expr (.block block)).Assigns "c" ∧ block.assigned = ["d", "e"] := by
  refine ⟨?_, ?_, ?_, by decide⟩
  · exact ((setting_assigns "a").of_has .rangeFirst).of_has (.block (List.mem_cons_self ..))
  · exact ((setting_assigns "b").of_has .rangeLast).of_has (.block (List.mem_cons_self ..))
  · exact (((setting_assigns "c").of_has .position).of_has .place).of_has
      (.block (List.mem_cons_of_mem _ (List.mem_cons_self ..)))

end TuffSafety
