import TuffSafety.Proofs.Frame
import TuffSafety.Proofs.Runs

/-!
# Assignments that a check notices

When a part of an expression assigns a variable, the check of the whole notices it: the scopes around
know of the assignment, and the facts about the variable are gone. Parts are looked at in the order in
which they are run, so this is shown for operands, branches and loops, and for blocks as far as the
name is not one of their own. Only an assignment that is hidden in the right operand of `&&` or `||`
may leave a fact behind.
-/
namespace TuffSafety

namespace Node

/-- A right operand of `&&` or `||` in the node assigns the name, and does so only out of sight. -/
def Hides (node : Node) (name : String) : Prop :=
  ∃ op l r loc, op.isLogical = true ∧ node.Contains (.expr (.binary op l r loc)) ∧
    (Node.expr r).Assigns name ∧ name ∉ r.assigned

/-- A function called in the node may write to the name. -/
def WritesFar (far : Expr → String → Prop) (node : Node) (name : String) : Prop :=
  ∃ callee args loc, node.Contains (.expr (.call callee args loc)) ∧ far callee name

variable {node part : Node} {name : String} {far : Expr → String → Prop}

theorem Hides.of_has (h : part.Hides name) (hpart : node.Has part) : node.Hides name := by
  obtain ⟨op, l, r, loc, hop, hin, hr⟩ := h
  exact ⟨op, l, r, loc, hop, .head hpart hin, hr⟩

theorem Hides.assigns (h : node.Hides name) : node.Assigns name := by
  obtain ⟨_, _, _, _, _, hin, ⟨place, value, loc, hassign⟩, _⟩ := h
  exact ⟨place, value, loc, hin.trans (.head .right hassign)⟩

theorem WritesFar.of_has (h : part.WritesFar far name) (hpart : node.Has part) :
    node.WritesFar far name := by
  obtain ⟨callee, args, loc, hin, hfar⟩ := h
  exact ⟨callee, args, loc, .head hpart hin, hfar⟩

/-- The node assigns the name, or a function called in it may write to it. -/
def MayWrite (far : Expr → String → Prop) (node : Node) (name : String) : Prop :=
  node.Assigns name ∨ node.WritesFar far name

theorem not_writesFar_quietCalls : ¬ node.WritesFar quietCalls name := by
  rintro ⟨_, _, _, _, hfar⟩
  exact hfar

def operands : Node → List Expr
  | .expr e => e.operands
  | .stmt s => s.operands

theorem has_operand {e : Expr} (he : e ∈ node.operands) : node.Has (.expr e) := by
  cases node with
  | expr whole =>
    change e ∈ whole.operands at he
    unfold Expr.operands at he
    split at he
    · split at he
      · cases List.mem_singleton.mp he
        exact .left
      · rcases List.mem_cons.mp he with rfl | he
        · exact .left
        · cases List.mem_singleton.mp he
          exact .right
    · cases List.mem_singleton.mp he
      exact .operand
    · exact .arg he
    · rcases List.mem_append.mp he with he | he
      · exact .arg he
      · cases List.mem_singleton.mp he
        exact .callee
    · cases List.mem_singleton.mp he
      exact .object
    · rcases List.mem_cons.mp he with rfl | he
      · exact .target
      · cases List.mem_singleton.mp he
        exact .position
    · obtain ⟨f, hf, rfl⟩ := List.mem_map.mp he
      exact .field hf
    · cases List.mem_singleton.mp he
      exact .condition
    · cases List.mem_singleton.mp he
      exact .scrutinee
    · cases List.mem_singleton.mp he
      exact .tested
    · cases List.mem_singleton.mp he
      exact .unwrapped
    · cases he
  | stmt st =>
    change e ∈ st.operands at he
    unfold Stmt.operands at he
    split at he
    · cases List.mem_singleton.mp he
      exact .initializer
    · cases List.mem_singleton.mp he
      exact .assigned
    · rcases List.mem_cons.mp he with rfl | he
      · exact .assigned
      · cases List.mem_singleton.mp he
        exact .place
    · cases Option.mem_toList.mp he
      exact .returned
    · rcases List.mem_cons.mp he with rfl | he
      · exact .rangeFirst
      · cases List.mem_singleton.mp he
        exact .rangeLast
    · cases he

end Node

/-- What was forgotten stays so, and what was noted as assigned stays noted. -/
structure Flow.Follows (flow flow' : Flow) : Prop where
  forgotten : ∀ name, flow.facts.get? name = none → flow'.facts.get? name = none
  noted : ∀ name ∈ flow.scope.assigned, name ∈ flow'.scope.assigned

/-- A name that is visible has lost its fact, unless it may keep it, and is noted as assigned unless it
is local. -/
def Flow.Touched (kept : Prop) (flow flow' : Flow) (name : String) : Prop :=
  (flow.scope.get? name).isSome →
    (kept ∨ flow'.facts.get? name = none) ∧
      (name ∉ flow.scope.locals → name ∈ flow'.scope.assigned)

namespace Flow

variable {P : String → Prop} {kept kept' : Prop} {flow mid flow' inner : Flow} {name : String}

theorem Follows.refl (flow : Flow) : flow.Follows flow :=
  ⟨fun _ hnone => hnone, fun _ hname => hname⟩

theorem Follows.trans (h : flow.Follows mid) (h' : mid.Follows flow') : flow.Follows flow' :=
  ⟨fun name hnone => h'.forgotten name (h.forgotten name hnone),
    fun name hname => h'.noted name (h.noted name hname)⟩

theorem Moves.follows (h : flow.Moves P flow') : flow.Follows flow' := by
  refine ⟨fun name hnone => ?_, h.notes.assigned⟩
  rcases h.fact name with heq | ⟨_, heq⟩
  · exact heq.trans hnone
  · exact heq

theorem settle_follows (flow inner : Flow) : flow.Follows (flow.settle inner) :=
  (loosen_moves (fun _ hname => hname) flow).follows

theorem Touched.mono (h : flow.Touched kept flow' name) (hkept : kept → kept') :
    flow.Touched kept' flow' name :=
  fun hvisible => (h hvisible).imp_left fun hfact => hfact.imp_left hkept

theorem Touched.later (h : flow.Touched kept mid name) (hm : mid.Follows flow') :
    flow.Touched kept flow' name := by
  intro hvisible
  obtain ⟨hfact, hnoted⟩ := h hvisible
  exact ⟨hfact.imp_right (hm.forgotten name), fun hlocal => hm.noted name (hnoted hlocal)⟩

theorem Touched.earlier (hm : flow.Moves P mid) (h : mid.Touched kept flow' name) :
    flow.Touched kept flow' name := by
  intro hvisible
  obtain ⟨hfact, hnoted⟩ := h (hm.notes.visible name hvisible)
  refine ⟨hfact, fun hlocal => hnoted ?_⟩
  rwa [hm.locals]

/-- What a nested part has noted is dropped behind it. -/
theorem touched_settle (h : (flow.scope.get? name).isSome → name ∈ inner.scope.assigned) :
    flow.Touched kept (flow.settle inner) name := by
  intro hvisible
  have hname := h hvisible
  refine ⟨.inr ?_, fun hlocal => ?_⟩
  · rw [settle, loosen, Facts.get?_forgetAll, if_pos hname]
  · exact (Scope.mem_assigned_widenAll _ _ _).mpr (.inr ⟨hname, hvisible, hlocal⟩)

theorem Touched.nested {learned : Facts} (h : (flow.under learned).Touched kept inner name) :
    flow.Touched kept' (flow.settle inner) name :=
  touched_settle fun hvisible => (h hvisible).2 List.not_mem_nil

end Flow

namespace Checker

/-- The step in which a node is looked at. -/
def node (c : Checker) (ret : Option TypeInfo) : Node → Step
  | .expr e => c.expr e ret
  | .stmt s => c.stmt s ret

/-- Operands are looked at one after the other. -/
inductive Through (c : Checker) (ret : Option TypeInfo) : List Expr → Flow → Flow → Prop where
  | nil {flow} : Through c ret [] flow flow
  | cons {e es flow t mid flow'} (h : c.expr e ret flow = .ok (t, mid))
      (hs : Through c ret es mid flow') : Through c ret (e :: es) flow flow'

variable {c : Checker} {ret : Option TypeInfo} {flow mid flow' : Flow} {t : TypeInfo}

theorem Through.single {e : Expr} (h : c.expr e ret flow = .ok (t, flow')) :
    c.Through ret [e] flow flow' :=
  .cons h .nil

theorem Through.append {es es' : List Expr} (h : c.Through ret es flow mid)
    (h' : c.Through ret es' mid flow') : c.Through ret (es ++ es') flow flow' := by
  induction h with
  | nil => exact h'
  | cons he _ ih => exact .cons he (ih h')

theorem Through.follows {es : List Expr} (h : c.Through ret es flow flow') : flow.Follows flow' := by
  induction h with
  | nil => exact .refl _
  | cons he _ ih => exact (c.expr_moves _ ret he).follows.trans ih

theorem args_through {es : List Expr} {loc : Option Loc} {infos : List (TypeInfo × Option Loc)}
    (h : c.args es ret loc flow = .ok (infos, flow')) : c.Through ret es flow flow' := by
  induction es generalizing flow infos with
  | nil =>
    cases h
    exact .nil
  | cons e es ih =>
    obtain ⟨info, mid, rest, he, hes, _⟩ := args_cons_ok h
    exact .cons he (ih hes)

theorem fieldInits_through {decl : StructDecl} {loc : Option Loc} {fs : List FieldInit}
    (h : c.fieldInits decl loc fs ret flow = .ok flow') :
    c.Through ret (fs.map FieldInit.value) flow flow' := by
  induction fs generalizing flow with
  | nil =>
    cases h
    exact .nil
  | cons f fs ih =>
    obtain ⟨key, value⟩ := f
    obtain ⟨info, mid, declared, _, he, _, hfs⟩ := fieldInits_cons_ok h
    exact .cons he (ih hfs)

theorem call_through {callee : Expr} {es : List Expr} {loc : Option Loc}
    (h : c.expr (.call callee es loc) ret flow = .ok (t, flow')) :
    c.Through ret (Expr.call callee es loc).operands flow flow' := by
  rw [expr] at h
  obtain ⟨⟨infos, mid⟩, ha, h⟩ := bind_eq_ok.mp h
  have hargs := args_through ha
  cases callee with
  | ident name place =>
    dsimp only at h
    split at h
    · obtain ⟨result, _, h⟩ := bind_eq_ok.mp h
      cases h
      exact hargs
    · cases h
      exact hargs
  | _ =>
    obtain ⟨⟨info, last⟩, hc, h⟩ := bind_eq_ok.mp h
    cases h
    exact hargs.append (.single hc)

theorem ite_expr_ok {cond thenBranch : Expr} {elseBranch : Option Expr} {loc : Option Loc}
    (h : c.expr (.ite cond thenBranch elseBranch loc) ret flow = .ok (t, flow')) :
    ∃ tested mid thenInfo after, c.expr cond ret flow = .ok (tested, mid) ∧
      nested (Facts.derive cond true) (c.expr thenBranch ret) mid = .ok (thenInfo, after) ∧
      ((∃ e elseInfo, elseBranch = some e ∧
          nested (Facts.derive cond false) (c.expr e ret) after = .ok (elseInfo, flow')) ∨
        elseBranch = none ∧ flow' = after) := by
  rw [← c.stmt_ofBranch] at h
  exact ite_stmt_ok h

/-- The branches of an `if` come behind its condition. -/
theorem branches_follow {cond thenBranch : Expr} {elseBranch : Option Expr} {thenInfo : TypeInfo}
    {after : Flow}
    (ht : nested (Facts.derive cond true) (c.expr thenBranch ret) mid = .ok (thenInfo, after))
    (helse : (∃ e elseInfo, elseBranch = some e ∧
        nested (Facts.derive cond false) (c.expr e ret) after = .ok (elseInfo, flow')) ∨
      elseBranch = none ∧ flow' = after) : mid.Follows flow' ∧ after.Follows flow' := by
  have hthen := nested_moves _ (c.expr_moves thenBranch ret).notes ht
  rcases helse with ⟨e, elseInfo, rfl, he⟩ | ⟨rfl, rfl⟩
  · have helse := nested_moves _ (c.expr_moves e ret).notes he
    exact ⟨hthen.follows.trans helse.follows, helse.follows⟩
  · exact ⟨hthen.follows, .refl _⟩

/-- An expression is looked at operands first. -/
theorem expr_through {e : Expr} (h : c.expr e ret flow = .ok (t, flow')) :
    ∃ mid, c.Through ret e.operands flow mid ∧ mid.Follows flow' := by
  cases e with
  | binary op l r loc =>
    cases hop : op.isLogical with
    | true =>
      rw [expr, if_pos hop] at h
      obtain ⟨left, mid, right, inner, hl, hr, _, rfl⟩ := shortCircuit_ok h
      refine ⟨mid, ?_, (guarded_moves _ (c.expr_moves r ret) (fun _ => Assigned.expr_assigns r) hr).follows⟩
      rw [Expr.operands, if_pos hop]
      exact .single hl
    | false =>
      obtain ⟨left, mid, right, hl, hr, _⟩ := expr_binary_ok hop h
      refine ⟨flow', ?_, .refl _⟩
      rw [Expr.operands, if_neg (by rw [hop]; decide)]
      exact .cons hl (.single hr)
  | unary op operand loc =>
    obtain ⟨info, he, _⟩ := expr_unary_ok h
    exact ⟨flow', .single he, .refl _⟩
  | call callee es loc => exact ⟨flow', call_through h, .refl _⟩
  | member object property loc =>
    rw [expr] at h
    obtain ⟨⟨info, last⟩, ho, h⟩ := bind_eq_ok.mp h
    obtain ⟨result, _, h⟩ := bind_eq_ok.mp h
    cases h
    exact ⟨_, .single ho, .refl _⟩
  | index target position loc =>
    obtain ⟨array, mid, place, ht, hp, _⟩ := expr_index_ok h
    exact ⟨flow', .cons ht (.single hp), .refl _⟩
  | structInit name fields loc =>
    rw [expr] at h
    split at h
    · cases h
    · obtain ⟨last, hf, h⟩ := bind_eq_ok.mp h
      cases h
      exact ⟨_, fieldInits_through hf, .refl _⟩
  | ite cond thenBranch elseBranch loc =>
    obtain ⟨tested, mid, thenInfo, after, hc, ht, helse⟩ := ite_expr_ok h
    exact ⟨mid, .single hc, (branches_follow ht helse).1⟩
  | matchOn target cs loc =>
    rw [expr] at h
    obtain ⟨⟨info, mid⟩, ht, h⟩ := bind_eq_ok.mp h
    obtain ⟨_, _, h⟩ := bind_eq_ok.mp h
    have hpart : ∀ arm ∈ cs, (Node.expr (.matchOn target cs loc)).Has (.expr arm.body) :=
      fun _ harm => .arm harm
    exact ⟨mid, .single ht, (c.matchCases_moves cs ret hpart h).follows⟩
  | isPattern operand pattern loc =>
    rw [expr] at h
    obtain ⟨⟨info, last⟩, he, h⟩ := bind_eq_ok.mp h
    cases h
    exact ⟨_, .single he, .refl _⟩
  | unwrap operand loc =>
    rw [expr] at h
    exact ⟨_, .single h, .refl _⟩
  | _ => exact ⟨flow, .nil, (c.expr_moves _ ret h).follows⟩

/-- So is a statement, which may bind a name behind them. -/
theorem stmt_through {s : Stmt} (h : c.stmt s ret flow = .ok (t, flow')) :
    ∃ mid, c.Through ret s.operands flow mid ∧ mid.Follows flow' := by
  cases s with
  | letDecl name type value loc =>
    obtain ⟨info, mid, hv, hd⟩ := letDecl_ok h
    obtain ⟨b, rfl, _⟩ := declare_ok hd
    refine ⟨mid, .single hv, fun key hnone => ?_, fun key hkey => ?_⟩
    · rw [Facts.get?_forget, hnone, ite_self]
    · rwa [Scope.assigned_declare]
  | assign target value loc =>
    cases target with
    | ident name place =>
      obtain ⟨info, mid, hv, ha⟩ := assign_ident_ok h
      refine ⟨mid, .single hv, ?_⟩
      rcases assign_ok ha with ⟨_, rfl⟩ | ⟨b, _, _, rfl⟩
      · exact .refl _
      · refine ⟨fun key hnone => ?_, fun key hkey => ?_⟩
        · rw [Facts.get?_forget, hnone, ite_self]
        · exact (Scope.mem_assigned_update _ _ _ _).mpr (.inl hkey)
    | _ =>
      rw [stmt] at h
      obtain ⟨⟨info, mid⟩, hv, h⟩ := bind_eq_ok.mp h
      obtain ⟨⟨_, last⟩, ht, h⟩ := bind_eq_ok.mp h
      cases h
      exact ⟨_, .cons hv (.single ht), .refl _⟩
  | ret value loc =>
    cases value with
    | none => exact ⟨flow, .nil, ((c.stmt_changes _ ret).moves rfl h).follows⟩
    | some value =>
      rw [stmt] at h
      obtain ⟨⟨info, last⟩, hv, h⟩ := bind_eq_ok.mp h
      obtain ⟨_, _, h⟩ := bind_eq_ok.mp h
      cases h
      exact ⟨_, .single hv, .refl _⟩
  | forLoop iterator first last body loc =>
    obtain ⟨low, mid, hl, high, start, hh, result, inner, hb, rfl⟩ := forLoop_stmt_ok h
    exact ⟨start, .cons hl (.single hh), start.settle_follows inner⟩
  | _ => exact ⟨flow, .nil, ((c.stmt_changes _ ret).moves rfl h).follows⟩

theorem node_through {whole : Node} (h : c.node ret whole flow = .ok (t, flow')) :
    ∃ mid, c.Through ret whole.operands flow mid ∧ mid.Follows flow' := by
  cases whole with
  | expr e => exact expr_through h
  | stmt s => exact stmt_through h

end Checker

/-- The node assigns the name, and no check of the node overlooks that. -/
structure Node.Reassigns (node : Node) (name : String) : Prop where
  assigned : node.Assigns name
  touched : ∀ {c ret flow t flow'}, Checker.node c ret node flow = .ok (t, flow') →
    flow.Touched (node.Hides name) flow' name

theorem Checker.Through.touched {c : Checker} {ret : Option TypeInfo} {es : List Expr}
    {flow flow' : Flow} (h : c.Through ret es flow flow') {e : Expr} (he : e ∈ es) {name : String}
    (hname : (Node.expr e).Reassigns name) : flow.Touched ((Node.expr e).Hides name) flow' name := by
  induction h with
  | nil => cases he
  | cons hfirst hrest ih =>
    rcases List.mem_cons.mp he with rfl | he
    · exact (hname.touched hfirst).later hrest.follows
    · exact .earlier (c.expr_moves _ ret hfirst) (ih he)

/-- What a part assigns, the node around it assigns, and no check overlooks it. -/
structure Node.Conveys (part node : Node) : Prop where
  has : node.Has part
  reassigns : ∀ name, part.Reassigns name → node.Reassigns name

namespace Node.Conveys

open Checker

variable {loc : Option Loc}

/-- A part that is looked at by itself. -/
theorem of_touched {part node : Node} (has : node.Has part)
    (h : ∀ {name c ret flow t flow'}, part.Reassigns name → Checker.node c ret node flow = .ok (t, flow') →
      flow.Touched (part.Hides name) flow' name) : Conveys part node :=
  ⟨has, fun _ hname => ⟨hname.assigned.of_has has,
    fun hnode => (h hname hnode).mono fun hides => hides.of_has has⟩⟩

theorem operand {node : Node} {e : Expr} (he : e ∈ node.operands) : Conveys (.expr e) node := by
  refine of_touched (has_operand he) fun hname hnode => ?_
  obtain ⟨mid, hthrough, hfollows⟩ := node_through hnode
  exact (hthrough.touched he hname).later hfollows

/-- The facts behind a guarded operand are those before it, less what is collected in the operand. -/
theorem guarded {op : BinaryOp} (hop : op.isLogical = true) (l r : Expr) :
    Conveys (.expr r) (.expr (.binary op l r loc)) := by
  refine ⟨.right, fun name hname => ⟨hname.assigned.of_has .right, ?_⟩⟩
  intro c ret flow t flow' hb
  change c.expr _ ret flow = _ at hb
  rw [Checker.expr, if_pos hop] at hb
  obtain ⟨left, mid, right, inner, hl, hr, _, rfl⟩ := shortCircuit_ok hb
  refine .earlier (c.expr_moves l ret hl) fun hvisible => ⟨?_, (hname.touched hr hvisible).2⟩
  by_cases hcollected : name ∈ r.assigned
  · exact .inr (by rw [Facts.get?_forgetAll, if_pos hcollected])
  · exact .inl ⟨op, l, r, loc, hop, .refl, hname.assigned, hcollected⟩

theorem thenBranch (cond t : Expr) (e : Option Expr) :
    Conveys (.expr t) (.expr (.ite cond t e loc)) := by
  refine of_touched .thenBranch fun {name c ret flow info flow'} hname hite => ?_
  obtain ⟨tested, mid, thenInfo, after, hc, ht, helse⟩ := ite_expr_ok hite
  obtain ⟨inner, hthen, rfl⟩ := nested_ok ht
  exact .earlier (c.expr_moves cond ret hc)
    ((hname.touched hthen).nested.later (branches_follow ht helse).2)

theorem elseBranch (cond t e : Expr) : Conveys (.expr e) (.expr (.ite cond t (some e) loc)) := by
  refine of_touched .elseBranch fun {name c ret flow info flow'} hname hite => ?_
  obtain ⟨tested, mid, thenInfo, after, hc, ht, helse⟩ := ite_expr_ok hite
  refine .earlier (c.expr_moves cond ret hc) (.earlier (nested_moves _ (c.expr_moves t ret).notes ht) ?_)
  rcases helse with ⟨e', elseInfo, he', he⟩ | ⟨hnone, _⟩
  · cases he'
    obtain ⟨inner, helse, rfl⟩ := nested_ok he
    exact (hname.touched helse).nested
  · cases hnone

theorem exprStmt (e : Expr) : Conveys (.expr e) (.stmt (.expr e loc)) := by
  refine of_touched .exprStmt fun {name c ret flow t flow'} hname hs => ?_
  change c.stmt _ ret flow = _ at hs
  rw [Checker.stmt] at hs
  exact hname.touched hs

theorem blockStmt (body : Block) : Conveys (.expr (.block body)) (.stmt (.block body)) := by
  refine of_touched .blockStmt fun {name c ret flow t flow'} hname hs => ?_
  exact hname.touched ((c.stmt_ofBranch (.block body) ret flow).symm.trans hs)

theorem ifStmt (cond t : Expr) (e : Option Expr) :
    Conveys (.expr (.ite cond t e loc)) (.stmt (.ite cond t e loc)) := by
  refine of_touched .ifStmt fun {name c ret flow info flow'} hname hs => ?_
  exact hname.touched ((c.stmt_ofBranch (.ite cond t e loc) ret flow).symm.trans hs)

/-- A loop is checked in a frame of its own, in which no name is local. -/
theorem loopStart_visible (body : Block) {flow : Flow} {name : String}
    (h : (flow.scope.get? name).isSome) :
    ((loopStart body flow).scope.get? name).isSome ∧ name ∉ (loopStart body flow).scope.locals := by
  refine ⟨(Flow.extends_loosen flow.child _).visible name h, ?_⟩
  rw [loopStart, Flow.locals_loosen]
  exact List.not_mem_nil

theorem whileCondition (cond : Expr) (body : Block) :
    Conveys (.expr cond) (.stmt (.whileLoop cond body loc)) := by
  refine of_touched .whileCondition fun {name c ret flow t flow'} hname hs => ?_
  obtain ⟨tested, start, result, inner, hc, hb, rfl⟩ := whileLoop_stmt_ok hs
  refine Flow.touched_settle fun hvisible => ?_
  obtain ⟨hvisible, hlocal⟩ := loopStart_visible body hvisible
  exact (c.expr_moves _ ret hb).notes.assigned name ((hname.touched hc hvisible).2 hlocal)

theorem whileBody (cond : Expr) (body : Block) :
    Conveys (.expr (.block body)) (.stmt (.whileLoop cond body loc)) := by
  refine of_touched .whileBody fun {name c ret flow t flow'} hname hs => ?_
  obtain ⟨tested, start, result, inner, hc, hb, rfl⟩ := whileLoop_stmt_ok hs
  refine Flow.touched_settle fun hvisible => ?_
  obtain ⟨hvisible, hlocal⟩ := loopStart_visible body hvisible
  have hmoves := c.expr_moves cond ret hc
  refine (hname.touched hb (hmoves.notes.visible name hvisible)).2 ?_
  rw [← hmoves.locals] at hlocal
  exact hlocal

end Node.Conveys

/-! ### Names that a frame hides -/

namespace Checker

variable {c : Checker} {ret : Option TypeInfo} {flow flow' : Flow} {t : TypeInfo}

/-- Only a declaration of a variable makes a name local. -/
theorem stmt_locals {s : Stmt} (hlet : s.isLet = false) (h : c.stmt s ret flow = .ok (t, flow')) :
    flow'.scope.locals = flow.scope.locals := by
  cases hbinds : s.binds with
  | false => exact ((c.stmt_changes s ret).moves hbinds h).locals
  | true =>
    cases s with
    | letDecl => cases hlet
    | assign target value loc =>
      cases target with
      | ident name place =>
        obtain ⟨info, mid, hv, ha⟩ := assign_ident_ok h
        rw [← (c.expr_moves value ret hv).locals]
        rcases assign_ok ha with ⟨_, rfl⟩ | ⟨b, _, _, rfl⟩
        · rfl
        · exact Scope.locals_update _ _ _
      | _ => cases hbinds
    | _ => cases hbinds

theorem bindFields_frame {struct : String} {loc : Option Loc} {fields : List PatternField}
    (h : c.bindFields struct loc fields flow = .ok flow') (name : String) :
    ((flow.scope.get? name).isSome → (flow'.scope.get? name).isSome) ∧
      (name ∈ flow'.scope.locals → name ∈ flow.scope.locals ∨ name ∈ fields.map PatternField.bind) := by
  induction fields generalizing flow with
  | nil =>
    cases h
    exact ⟨fun hvisible => hvisible, .inl⟩
  | cons f fs ih =>
    rw [bindFields] at h
    split at h
    all_goals
      obtain ⟨info, _, h⟩ := bind_eq_ok.mp h
      obtain ⟨hvisible, hlocal⟩ := ih h
      refine ⟨fun hname => hvisible ?_, fun hname => ?_⟩
      · exact (flow.extends_declare f.bind (.fixed info) (flow.facts.forget f.bind)).visible name hname
      · rcases hlocal hname with hold | hnew
        · rcases (Scope.mem_locals_declare _ _ _ _).mp hold with rfl | hold
          · exact .inr List.mem_cons_self
          · exact .inl hold
        · exact .inr (List.mem_cons_of_mem _ hnew)

/-- In an arm all names are visible that were before, and only those that the pattern binds are
local. -/
theorem bindPattern_frame {pattern : Pattern} {loc : Option Loc}
    (h : c.bindPattern pattern loc flow.child = .ok flow') (name : String) :
    ((flow.scope.get? name).isSome → (flow'.scope.get? name).isSome) ∧
      (name ∈ flow'.scope.locals → name ∈ pattern.binds) := by
  cases pattern with
  | struct struct fields =>
    obtain ⟨hvisible, hlocal⟩ := bindFields_frame h name
    exact ⟨hvisible, fun hname => (hlocal hname).resolve_left List.not_mem_nil⟩
  | _ =>
    cases h
    exact ⟨fun hvisible => hvisible, fun hname => (List.not_mem_nil hname).elim⟩

/-- What an arm assigns, other than what its pattern binds, is touched behind the arms. -/
theorem matchCases_touched {cs : List MatchCase} {loc : Option Loc} {joined : Option TypeInfo}
    (h : c.matchCases loc cs ret joined flow = .ok (t, flow')) {arm : MatchCase} (harm : arm ∈ cs)
    {name : String} (hname : (Node.expr arm.body).Reassigns name) (hbound : name ∉ arm.pattern.binds)
    {kept : Prop} : flow.Touched kept flow' name := by
  induction cs generalizing flow joined with
  | nil => cases harm
  | cons first cs ih =>
    obtain ⟨pattern, body⟩ := first
    obtain ⟨info, mid, hfirst, hcs⟩ := matchCases_cons_ok h
    have hbody : StepMoves (Node.expr body).Assigns (c.expr body ret) := c.expr_moves body ret
    have hmoves := matchArm_moves c pattern hbody hfirst
    rcases List.mem_cons.mp harm with rfl | harm
    · have hpart : ∀ arm ∈ cs, (Node.expr (.matchOn body cs none)).Has (.expr arm.body) :=
        fun _ harm => .arm harm
      refine Flow.Touched.later ?_ (c.matchCases_moves cs ret hpart hcs).follows
      obtain ⟨start, hstart, hfirst⟩ := bind_eq_ok.mp hfirst
      obtain ⟨⟨result, inner⟩, hb, hfirst⟩ := bind_eq_ok.mp hfirst
      cases hfirst
      refine Flow.touched_settle fun hvisible => ?_
      obtain ⟨hvisible', hlocal⟩ := bindPattern_frame hstart name
      exact (hname.touched hb (hvisible' hvisible)).2 fun h => hbound (hlocal h)
    · exact .earlier hmoves (ih hcs harm)

end Checker

theorem Node.Reassigns.assign (name : String) (place : Option Loc) (value : Expr) (loc : Option Loc) :
    (Node.stmt (.assign (.ident name place) value loc)).Reassigns name := by
  refine ⟨assigns_assign name place value loc, ?_⟩
  intro c ret flow t flow' hs hvisible
  change c.stmt _ ret flow = _ at hs
  obtain ⟨info, mid, hv, ha⟩ := Checker.assign_ident_ok hs
  have hmoves := c.expr_moves value ret hv
  have hvisible' := hmoves.notes.visible name hvisible
  rcases Checker.assign_ok ha with ⟨hnone, _⟩ | ⟨b, _, _, rfl⟩
  · rw [hnone] at hvisible'
    cases hvisible'
  · refine ⟨.inr (by rw [Facts.get?_forget, if_pos rfl]), fun hlocal => ?_⟩
    refine (Scope.mem_assigned_update _ _ _ _).mpr (.inr ⟨rfl, hvisible', ?_⟩)
    rwa [hmoves.locals]

theorem Node.Reassigns.arm {target : Expr} {cs : List MatchCase} {arm : MatchCase} (harm : arm ∈ cs)
    {name : String} (h : (Node.expr arm.body).Reassigns name) (hbound : name ∉ arm.pattern.binds)
    {loc : Option Loc} : (Node.expr (.matchOn target cs loc)).Reassigns name := by
  refine ⟨h.assigned.of_has (.arm harm), ?_⟩
  intro c ret flow t flow' hm
  change c.expr _ ret flow = _ at hm
  rw [Checker.expr] at hm
  obtain ⟨⟨info, mid⟩, ht, hm⟩ := bind_eq_ok.mp hm
  obtain ⟨_, _, hm⟩ := bind_eq_ok.mp hm
  exact .earlier (c.expr_moves target ret ht) (Checker.matchCases_touched hm harm h hbound)

theorem Node.Reassigns.forBody {body : Block} {name iterator : String}
    (h : (Node.expr (.block body)).Reassigns name) (hname : name ≠ iterator) (first last : Expr)
    {loc : Option Loc} : (Node.stmt (.forLoop iterator first last body loc)).Reassigns name := by
  refine ⟨h.assigned.of_has .forBody, ?_⟩
  intro c ret flow t flow' hs
  obtain ⟨low, mid, hl, high, start, hh, result, inner, hb, rfl⟩ := Checker.forLoop_stmt_ok hs
  refine .earlier (c.expr_moves first ret hl) (.earlier (c.expr_moves last ret hh) ?_)
  refine Flow.touched_settle fun hvisible => ?_
  obtain ⟨hvisible, hlocal⟩ := Conveys.loopStart_visible body hvisible
  refine (h.touched hb ?_).2 fun hmem => ?_
  · rw [Scope.get?_declare, if_neg hname]
    exact hvisible
  · exact hlocal (((Scope.mem_locals_declare _ _ _ _).mp hmem).resolve_left hname)

/-- The names that the checker takes for local are in the layer. -/
def Flow.CoveredBy (flow : Flow) (layer : OrderedMap Cell) : Prop :=
  ∀ name ∈ flow.scope.locals, (layer.get? name).isSome

/-- In a layer of its own a statement assigns a name of the layers around it, and no check of it
overlooks that. -/
structure Stmt.Escapes (layer : OrderedMap Cell) (s : Stmt) (name : String) : Prop where
  assigned : (Node.stmt s).Assigns name
  noted : ∀ {c ret flow t flow'}, Checker.stmt c s ret flow = .ok (t, flow') →
    flow.CoveredBy layer → (flow.scope.get? name).isSome → name ∈ flow'.scope.assigned

/-- The same of statements that run one after the other. -/
structure Escapes (layer : OrderedMap Cell) (ss : List Stmt) (name : String) : Prop where
  assigned : ∃ s ∈ ss, (Node.stmt s).Assigns name
  noted : ∀ {c ret last flow t flow'}, Checker.stmts c ss ret last flow = .ok (t, flow') →
    flow.CoveredBy layer → (flow.scope.get? name).isSome → name ∈ flow'.scope.assigned

theorem Node.Reassigns.escapes {s : Stmt} {name : String} (h : (Node.stmt s).Reassigns name)
    {layer : OrderedMap Cell} (hlayer : layer.get? name = none) : s.Escapes layer name := by
  refine ⟨h.assigned, ?_⟩
  intro c ret flow t flow' hs hcovered hvisible
  refine (h.touched hs hvisible).2 fun hlocal => ?_
  have hsome := hcovered name hlocal
  rw [hlayer] at hsome
  cases hsome

namespace Escapes

variable {layer layer' : OrderedMap Cell} {s : Stmt} {ss : List Stmt} {name : String}

theorem first (h : s.Escapes layer name) (ss : List Stmt) : Escapes layer (s :: ss) name := by
  refine ⟨⟨s, List.mem_cons_self, h.assigned⟩, ?_⟩
  intro c ret last flow t flow' hss hcovered hvisible
  obtain ⟨info, mid, hs, hss⟩ := Checker.stmts_cons_ok hss
  exact (Checker.stmts_extends hss).assigned name (h.noted hs hcovered hvisible)

theorem later (h : Escapes layer' ss name)
    (hlayer : ∀ {c ret flow t flow'}, Checker.stmt c s ret flow = .ok (t, flow') →
      flow.CoveredBy layer → flow'.CoveredBy layer') : Escapes layer (s :: ss) name := by
  obtain ⟨s', hs', hassigned⟩ := h.assigned
  refine ⟨⟨s', List.mem_cons_of_mem _ hs', hassigned⟩, ?_⟩
  intro c ret last flow t flow' hss hcovered hvisible
  obtain ⟨info, mid, hs, hss⟩ := Checker.stmts_cons_ok hss
  exact h.noted hss (hlayer hs hcovered) (((c.stmt_changes s ret).notes hs).visible name hvisible)

theorem block (h : Escapes .empty ss name) {loc : Option Loc} :
    (Node.expr (.block ⟨ss, loc⟩)).Reassigns name := by
  obtain ⟨s, hs, hassigned⟩ := h.assigned
  refine ⟨hassigned.of_has (.block hs), ?_⟩
  intro c ret flow t flow' hb
  change c.expr _ ret flow = _ at hb
  rw [Checker.expr] at hb
  obtain ⟨inner, hs, rfl⟩ := Checker.nested_ok hb
  refine Flow.touched_settle fun hvisible => h.noted hs ?_ hvisible
  exact fun _ hkey => (List.not_mem_nil hkey).elim

end Escapes

end TuffSafety
